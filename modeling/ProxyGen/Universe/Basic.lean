import ProxyGen.Error
import ProxyGen.Kind
import ProxyGen.Method
import ProxyGen.Text.Order

/-!
A universe: packages with the types and methods they declare. Nothing is known about packages outside
it; a type that a known package does not declare is an error.
-/
namespace ProxyGen

structure MethodDecl where
  name : String
  pointerReceiver : Bool
  receiverName : Option String
  signature : Signature
  deriving DecidableEq

/-- A type as declared. The underlying type of the kind `other` may itself be named. -/
structure TypeDecl where
  name : String
  kind : Kind
  underlying : TypeExpr
  embeds : List TypeExpr
  methods : List MethodDecl
  deriving DecidableEq

structure Package where
  path : String
  name : String
  types : List TypeDecl
  deriving DecidableEq

structure Universe where
  packages : List Package
  deriving DecidableEq

namespace Package

def type? (p : Package) (name : String) : Option TypeDecl := p.types.find? (·.name == name)

def declared (p : Package) : List (NamedType × TypeDecl) := p.types.map fun t => (⟨p.path,t.name⟩,t)

end Package

/-- The name that a package goes by when it gives none. -/
def lastElement (path : String) : String := String.ofList (Text.afterLast '/' path.toList)

namespace Universe

def package? (u : Universe) (path : String) : Option Package := u.packages.find? (·.path == path)

def declared (u : Universe) : List (NamedType × TypeDecl) := u.packages.flatMap Package.declared

/-- The declaration of a type, or nothing when its package is outside the universe. -/
def find (u : Universe) (n : NamedType) : Except Error (Option TypeDecl) :=
  match u.package? n.path with
  | none => .ok none
  | some p =>
    match p.type? n.name with
    | none => .error (.unknownType n)
    | some d => .ok (some d)

/-- The declaration of a type that must be declared. -/
def declaration (u : Universe) (n : NamedType) : Except Error TypeDecl :=
  match u.find n with
  | .error e => .error e
  | .ok none => .error (.unknownPackage n.path)
  | .ok (some d) => .ok d

def lookupType (u : Universe) (path name : String) : Except Error TypeExpr :=
  match u.declaration ⟨path,name⟩ with
  | .error e => .error e
  | .ok _ => .ok (.named ⟨path,name⟩)

/-- The path of a package that is given by its path or by a name that no other package has. -/
def resolvePackage (u : Universe) (name : String) : Except Error String :=
  match u.package? name with
  | some _ => .ok name
  | none =>
    match Text.sortBy id ((u.packages.filter (·.name == name)).map (·.path)) with
    | [] => .error (.unknownPackage name)
    | [path] => .ok path
    | candidates => .error (.ambiguousPackage name candidates)

def packageName (u : Universe) (path : String) : String :=
  match u.package? path with
  | some p => p.name
  | none => lastElement path

theorem find_eq_some {u : Universe} {n : NamedType} {d : TypeDecl}
    (declared : u.find n = .ok (some d)) : (n,d) ∈ u.declared := by
  unfold find at declared
  split at declared
  next => cases declared
  next p package =>
    split at declared
    next => cases declared
    next d' found =>
      cases declared
      have path : p.path = n.path := by simpa using List.find?_some package
      have name : d.name = n.name := by simpa using List.find?_some found
      apply List.mem_flatMap.mpr
      refine ⟨p,List.mem_of_find?_eq_some package,List.mem_map.mpr ⟨d,List.mem_of_find?_eq_some found,?_⟩⟩
      rw [path,name]

theorem declaration_eq_ok {u : Universe} {n : NamedType} {d : TypeDecl} :
    u.declaration n = .ok d ↔ u.find n = .ok (some d) := by
  simp only [declaration]
  split <;> simp_all

end Universe
end ProxyGen
