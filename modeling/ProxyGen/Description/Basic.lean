import ProxyGen.Kind

/-!
Descriptions of packages as they are written down: names, texts of types, and what may be left out.
-/
namespace ProxyGen.Description

inductive Receiver
  | value
  | pointer
  deriving DecidableEq

/-- A parameter or result: its type alone, or a record that may name it. -/
inductive Param
  | bare (type : String)
  | full (name : Option String) (type : String)
  deriving DecidableEq

def Param.name? : Param → Option String
  | bare _ => none
  | full name _ => name

def Param.typeText : Param → String
  | bare type => type
  | full _ type => type

/-- The last parameter of a variadic method is written as a slice of its elements. -/
structure Method where
  name : String
  receiver : Receiver
  receiverName : Option String
  params : List Param
  results : List Param
  variadic : Bool
  deriving DecidableEq

/-- The underlying type counts for the kind `other` alone. Embeds are embedded fields of a struct or
embedded interfaces. -/
structure TypeSpec where
  name : String
  kind : Kind
  underlying : Option String
  embeds : List String
  methods : List Method
  deriving DecidableEq

/-- A package without a name of its own goes by the last element of its path. -/
structure Package where
  path : String
  name : Option String
  types : List TypeSpec
  deriving DecidableEq

end Description

structure Description where
  packages : List Description.Package
  deriving DecidableEq

end ProxyGen
