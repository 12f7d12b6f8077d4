import ProxyGen.Description.Basic
import ProxyGen.Json.Bounded
import ProxyGen.Json.Record

/-!
Descriptions in JSON. Reading fills in what may be left out; writing leaves nothing out.
-/
namespace ProxyGen.Description

open Json (required orElse)

/-- A value out of a fixed set of names, written as a string or as an object with the name as its only
key and null as its value. -/
def choice? {α : Type} (choices : List (String × α)) : Json → Option α
  | .string name => choices.lookup name
  | .object [(name,.null)] => choices.lookup name
  | _ => none

def kind? : Json → Option Kind :=
  choice? [("struct",.struct),("interface",.interface),("other",.other)]

def Receiver.name : Receiver → String
  | value => "value"
  | pointer => "pointer"

def receiver? : Json → Option Receiver := choice? [("value",.value),("pointer",.pointer)]

/-- The nesting that a whole description may have leaves this much to one parameter. -/
def paramDepth : Nat := 119

/-- A string, or an object with a type. Unlike the other records it may not be an array. -/
def Param.ofJson? : Json → Option Param
  | .string type => some (.bare type)
  | .object fields =>
    if Json.bounded paramDepth (.object fields) then
      match Json.keyed? ["name","type"] fields with
      | some [name,type] => do
        let name ← orElse none (Json.nullable? Json.string?) name
        let type ← required Json.string? type
        some (.full name type)
      | _ => none
    else none
  | _ => none

def Method.ofJson? (j : Json) : Option Method :=
  match Json.record? ["name","receiver","receiver_name","params","results","variadic"] j with
  | some [name,receiver,receiverName,params,results,variadic] => do
    let name ← required Json.string? name
    let receiver ← orElse .value receiver? receiver
    let receiverName ← orElse none (Json.nullable? Json.string?) receiverName
    let params ← orElse [] (Json.list? Param.ofJson?) params
    let results ← orElse [] (Json.list? Param.ofJson?) results
    let variadic ← orElse false Json.bool? variadic
    some ⟨name,receiver,receiverName,params,results,variadic⟩
  | _ => none

def TypeSpec.ofJson? (j : Json) : Option TypeSpec :=
  match Json.record? ["name","kind","underlying","embeds","methods"] j with
  | some [name,kind,underlying,embeds,methods] => do
    let name ← required Json.string? name
    let kind ← required kind? kind
    let underlying ← orElse none (Json.nullable? Json.string?) underlying
    let embeds ← orElse [] (Json.list? Json.string?) embeds
    let methods ← orElse [] (Json.list? Method.ofJson?) methods
    some ⟨name,kind,underlying,embeds,methods⟩
  | _ => none

def Package.ofJson? (j : Json) : Option Package :=
  match Json.record? ["path","name","types"] j with
  | some [path,name,types] => do
    let path ← required Json.string? path
    let name ← orElse none (Json.nullable? Json.string?) name
    let types ← orElse [] (Json.list? TypeSpec.ofJson?) types
    some ⟨path,name,types⟩
  | _ => none

def ofJson? (j : Json) : Option Description :=
  match Json.record? ["packages"] j with
  | some [packages] => do
    let packages ← orElse [] (Json.list? Package.ofJson?) packages
    some ⟨packages⟩
  | _ => none

def nullOr : Option String → Json
  | some s => .string s
  | none => .null

def Param.toJson : Param → Json
  | bare type => .string type
  | full name type => .object [("name",nullOr name),("type",.string type)]

def Method.toJson (m : Method) : Json :=
  .object
    [("name",.string m.name),("receiver",.string m.receiver.name),
      ("receiver_name",nullOr m.receiverName),("params",.array (m.params.map Param.toJson)),
      ("results",.array (m.results.map Param.toJson)),("variadic",.bool m.variadic)]

def TypeSpec.toJson (t : TypeSpec) : Json :=
  .object
    [("name",.string t.name),("kind",.string t.kind.name),("underlying",nullOr t.underlying),
      ("embeds",.array (t.embeds.map .string)),("methods",.array (t.methods.map Method.toJson))]

def Package.toJson (p : Package) : Json :=
  .object
    [("path",.string p.path),("name",nullOr p.name),
      ("types",.array (p.types.map TypeSpec.toJson))]

def toJson (d : Description) : Json :=
  .object [("packages",.array (d.packages.map Package.toJson))]

end ProxyGen.Description
