import ProxyGen.Catalog.Descriptor
import ProxyGen.Universe.MethodSet

/-!
Groups: a root type with all references to it that have been found. Each method name in a group belongs
to the variant that claimed it.
-/
namespace ProxyGen

/-- Who holds a method name, and whether the holder has the method without going through a
reference. -/
structure Claim where
  owner : String
  direct : Bool
  deriving DecidableEq

/-- The members stand in the order in which they were found. -/
structure Group where
  descriptor : Descriptor
  claims : List (String × Claim)
  members : List String
  deriving DecidableEq

namespace Group

def key (g : Group) : String := g.descriptor.key

def claim? (g : Group) (method : String) : Option Claim := g.claims.lookup method

/-- A name is free, or it is held indirectly and now asked for directly. -/
def yields (g : Group) (method : String) (direct : Bool) : Bool :=
  match g.claim? method with
  | none => true
  | some c => !c.direct && direct

/-- The group after a claim, which is granted if the group yields. -/
def claim (g : Group) (method owner : String) (direct : Bool) : Group :=
  if g.yields method direct then
    { g with claims := (method,⟨owner,direct⟩) :: g.claims.filter (·.1 != method) }
  else g

def owns (g : Group) (owner method : String) : Bool :=
  match g.claim? method with
  | none => false
  | some c => c.owner == owner

/-- Claims one method after the other for `owner`; also gives those that were granted. -/
def claimAll (owner : String) : List Selection → Group → Group × List Selection
  | [], g => (g,[])
  | m :: rest, g =>
    let granted := g.yields m.name (!m.indirect)
    let (g',claimed) := claimAll owner rest (g.claim m.name owner (!m.indirect))
    (g',if granted then m :: claimed else claimed)

end Group
end ProxyGen
