import ProxyGen.Text.Uppercase
import ProxyGen.TypeExpr.Basic

/-!
Method signatures and the entries of method sets.
-/
namespace ProxyGen

structure Param where
  name : Option String
  type : TypeExpr
  deriving DecidableEq

/-- The last parameter of a variadic signature has the slice type of its elements. -/
structure Signature where
  params : List Param
  results : List Param
  variadic : Bool
  deriving DecidableEq

/-- A method as a type offers it. It is indirect when it is reached through a reference. Methods of
interfaces have no receiver name. -/
structure Selection where
  name : String
  receiverName : Option String
  signature : Signature
  indirect : Bool
  deriving DecidableEq

/-- Names that start with an upper-case letter are exported. -/
def isExported (name : String) : Bool := name.toList.head?.any Text.isUppercase

def Selection.exported (m : Selection) : Bool := isExported m.name

end ProxyGen
