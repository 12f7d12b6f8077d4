import ProxyGen.Json.Basic

/-!
Records in JSON. A record is an object with known fields, or an array of the fields' values in the
order of declaration. Fields that are not known are ignored; a known one may not be repeated.
-/
namespace ProxyGen.Json

def keyed? (names : List String) (fields : List (String × Json)) : Option (List (Option Json)) :=
  if names.all fun name => fields.countP (·.1 == name) ≤ 1 then
    some (names.map fun name => fields.lookup name)
  else none

def record? (names : List String) : Json → Option (List (Option Json))
  | object fields => keyed? names fields
  | array items =>
    if items.length ≤ names.length then
      some (items.map some ++ List.replicate (names.length - items.length) none)
    else none
  | _ => none

def required {α : Type} (read : Json → Option α) : Option Json → Option α
  | some j => read j
  | none => none

def orElse {α : Type} (default : α) (read : Json → Option α) : Option Json → Option α
  | some j => read j
  | none => some default

end ProxyGen.Json
