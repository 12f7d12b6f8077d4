/-!
JSON values. A number keeps the literal it was written with and an object keeps its fields in order,
repeated ones included.
-/
namespace ProxyGen

inductive Json
  | null
  | bool (value : Bool)
  | number (literal : String)
  | string (text : String)
  | array (items : List Json)
  | object (fields : List (String × Json))
  /-- Well-formed text that stands for no value, because a string in it names half of a surrogate
  pair; only a place that ignores what it holds accepts it. -/
  | unreadable

namespace Json

def ofNat (n : Nat) : Json := number (toString n)

def string? : Json → Option String
  | string s => some s
  | _ => none

def bool? : Json → Option Bool
  | bool b => some b
  | _ => none

def list? {α : Type} (read : Json → Option α) : Json → Option (List α)
  | array items => items.mapM read
  | _ => none

def nullable? {α : Type} (read : Json → Option α) : Json → Option (Option α)
  | null => some none
  | j => (read j).map some

/-- A count is written in digits alone and fits in 64 bits. -/
def count? : Json → Option Nat
  | number literal =>
    if literal.toList.all Char.isDigit then
      let n := literal.toList.foldl (fun n c => n * 10 + (c.toNat - '0'.toNat)) 0
      if n < Nat.pow 2 64 then some n else none
    else none
  | _ => none

end Json
end ProxyGen
