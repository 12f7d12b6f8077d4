import ProxyGen.Json.Token

/-!
Reading JSON text. Tokens are taken one after the other, and a stack holds the arrays and objects
that are still open.
-/
namespace ProxyGen.Json

/-- An open array or object with what stands in it so far, latest first. -/
inductive Frame
  | array (items : List Json)
  | object (fields : List (Option String × Json)) (key : Option String)

inductive Expect
  | value
  | itemOrEnd
  | keyOrEnd
  | key
  | colon
  | commaOrEnd

inductive Reading
  | inside (stack : List Frame) (expect : Expect)
  | done (value : Json)

/-- An object whose keys can all be read. -/
def ofFields (fields : List (Option String × Json)) : Json :=
  match fields.mapM fun (key,value) => key.map (·,value) with
  | some fields => object fields
  | none => unreadable

namespace Reading

/-- A value has been completed inside the frames of `stack`. -/
def plug (stack : List Frame) (v : Json) : Reading :=
  match stack with
  | [] => done v
  | .array items :: rest => .inside (.array (v :: items) :: rest) .commaOrEnd
  | .object fields key :: rest => .inside (.object ((key,v) :: fields) none :: rest) .commaOrEnd

def start (stack : List Frame) : Token → Option Reading
  | .openBracket => some (.inside (.array [] :: stack) .itemOrEnd)
  | .openBrace => some (.inside (.object [] none :: stack) .keyOrEnd)
  | .text (some s) => some (plug stack (.string s))
  | .text none => some (plug stack .unreadable)
  | .atom v => some (plug stack v)
  | _ => none

def step : Reading → Token → Option Reading
  | .inside stack .value, t => start stack t
  | .inside (.array _ :: rest) .itemOrEnd, .closeBracket => some (plug rest (.array []))
  | .inside stack .itemOrEnd, t => start stack t
  | .inside (.object _ _ :: rest) .keyOrEnd, .closeBrace => some (plug rest (.object []))
  | .inside (.object fields _ :: rest) .keyOrEnd, .text key =>
    some (.inside (.object fields key :: rest) .colon)
  | .inside (.object fields _ :: rest) .key, .text key =>
    some (.inside (.object fields key :: rest) .colon)
  | .inside stack .colon, .colon => some (.inside stack .value)
  | .inside (.array items :: rest) .commaOrEnd, .comma =>
    some (.inside (.array items :: rest) .value)
  | .inside (.array items :: rest) .commaOrEnd, .closeBracket =>
    some (plug rest (.array items.reverse))
  | .inside (.object fields key :: rest) .commaOrEnd, .comma =>
    some (.inside (.object fields key :: rest) .key)
  | .inside (.object fields _ :: rest) .commaOrEnd, .closeBrace =>
    some (plug rest (ofFields fields.reverse))
  | _, _ => none

end Reading

def parse (text : String) : Option Json := do
  match ← (← tokens? text).foldlM Reading.step (.inside [] .value) with
  | .done v => some v
  | _ => none

end ProxyGen.Json
