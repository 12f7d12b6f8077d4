/-!
Kinds of types.
-/
namespace ProxyGen

/-- What a type is made of: everything that is neither a struct nor an interface is `other`. -/
inductive Kind
  | struct
  | interface
  | other
  deriving DecidableEq

def Kind.name : Kind → String
  | struct => "struct"
  | interface => "interface"
  | other => "other"

end ProxyGen
