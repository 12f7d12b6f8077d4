import ProxyGen.Catalog.Group
import ProxyGen.Catalog.Status

/-!
The catalog: the types that have been found, their groups, and which types mention which. An edge leads
from a type to a type that has a method returning it, or returning something made of it. Types go
by their keys.
-/
namespace ProxyGen

/-- A type that has been found. The methods are those it claimed, in the order of claiming. -/
structure Entry where
  descriptor : Descriptor
  root : String
  status : Status
  methods : List Selection
  deriving DecidableEq

namespace Entry

def key (e : Entry) : String := e.descriptor.key

def needsProxy (e : Entry) : Bool := e.status != .none

/-- Statuses are never lowered. -/
def raise (e : Entry) (s : Status) : Entry := if e.status < s then { e with status := s } else e

theorem le_raise (e : Entry) (s : Status) : e.status ≤ (e.raise s).status := by
  unfold raise
  split
  next lower => exact Nat.le_of_lt lower
  next => exact Nat.le_refl _

theorem status_raise {e : Entry} {s : Status} (lower : e.status < s) : (e.raise s).status = s := by
  rw [raise,if_pos lower]

end Entry

/-- Entries and groups stand in the order in which they were found, edges the other way round. -/
structure Catalog where
  entries : List Entry
  groups : List Group
  edges : List (String × String)
  deriving DecidableEq

namespace Catalog

def empty : Catalog := ⟨[],[],[]⟩

def entry? (c : Catalog) (key : String) : Option Entry := c.entries.find? (·.key == key)

def group? (c : Catalog) (root : String) : Option Group := c.groups.find? (·.key == root)

def modifyEntry (c : Catalog) (key : String) (f : Entry → Entry) : Catalog :=
  { c with entries := c.entries.map fun e => if e.key == key then f e else e }

def modifyGroup (c : Catalog) (root : String) (f : Group → Group) : Catalog :=
  { c with groups := c.groups.map fun g => if g.key == root then f g else g }

def raise (c : Catalog) (key : String) (s : Status) : Catalog := c.modifyEntry key (·.raise s)

/-- Makes sure that there is a group for the root of `t`. -/
def addGroup (c : Catalog) (u : Universe) (t : TypeExpr) : Except Error Catalog :=
  match c.group? t.root.key with
  | some _ => .ok c
  | none =>
    match Descriptor.ofType u t.root with
    | .error e => .error e
    | .ok d => .ok { c with groups := c.groups ++ [⟨d,[],[]⟩] }

def addEntry (c : Catalog) (u : Universe) (t : TypeExpr) : Except Error Catalog :=
  match c.entry? t.key with
  | some _ => .ok c
  | none =>
    match Descriptor.ofType u t with
    | .error e => .error e
    | .ok d =>
      match c.addGroup u t with
      | .error e => .error e
      | .ok c =>
        let c := c.modifyGroup t.root.key fun g => { g with members := g.members ++ [t.key] }
        .ok { c with entries := c.entries ++ [⟨d,t.root.key,.none,[]⟩] }

def addEdge (c : Catalog) (source dependent : String) : Catalog :=
  if (source,dependent) ∈ c.edges then c
  else { c with edges := (source,dependent) :: c.edges }

/-- Enters a type, once, and records who mentions it. -/
def register (c : Catalog) (u : Universe) (t : TypeExpr) (dependent : Option String) :
    Except Error Catalog :=
  match c.addEntry u t with
  | .error e => .error e
  | .ok c =>
    match dependent with
    | none => .ok c
    | some d => .ok (c.addEdge t.key d)

/-- The types that mention `source`, the latest edge first. -/
def dependents (c : Catalog) (source : String) : List String :=
  (c.edges.filter (·.1 == source)).map (·.2)

def sorted (c : Catalog) : List Entry := Text.sortBy (·.key) c.entries

def owns (c : Catalog) (e : Entry) (method : String) : Bool :=
  match c.group? e.root with
  | none => false
  | some g => g.owns e.key method

/-- The members of a group that need a proxy, in the order of keys. -/
def wrappedMembers (c : Catalog) (g : Group) : List Entry :=
  Text.sortBy (·.key) ((g.members.filterMap c.entry?).filter (·.needsProxy))

def wrappedGroups (c : Catalog) : List Group :=
  Text.sortBy (·.key) (c.groups.filter fun g => (g.members.filterMap c.entry?).any (·.needsProxy))

def wrapped (c : Catalog) : List Entry := c.sorted.filter (·.needsProxy)

end Catalog
end ProxyGen
