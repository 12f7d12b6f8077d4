/-!
Type expressions of the host language. A type is known by its key, the fully qualified text of the
expression; stripping the references of a type gives its root.
-/
namespace ProxyGen

inductive ChanDir
  | both
  | send
  | recv
  deriving DecidableEq

/-- A declared type: the import path of its package and its name there. -/
structure NamedType where
  path : String
  name : String
  deriving DecidableEq

/-- The members of a struct or an interface stand at its declaration, not in the expression. -/
inductive TypeExpr
  | error
  | basic (name : String)
  | named (type : NamedType)
  | pointer (elem : TypeExpr)
  | slice (elem : TypeExpr)
  | array (length : Nat) (elem : TypeExpr)
  | map (key value : TypeExpr)
  | chan (dir : ChanDir) (elem : TypeExpr)
  | struct
  | interface
  deriving DecidableEq

def NamedType.key (n : NamedType) : String := n.path ++ "." ++ n.name

def ChanDir.text : ChanDir → String
  | .both => "chan "
  | .send => "chan<- "
  | .recv => "<-chan "

namespace TypeExpr

def key : TypeExpr → String
  | error => "error"
  | basic name => name
  | named n => n.key
  | pointer t => "*" ++ t.key
  | slice t => "[]" ++ t.key
  | array n t => "[" ++ toString n ++ "]" ++ t.key
  | map k v => "map[" ++ k.key ++ "]" ++ v.key
  | chan d t => d.text ++ t.key
  | struct => "struct\x7b\x7d"
  | interface => "interface\x7b\x7d"

def isError : TypeExpr → Bool
  | error => true
  | _ => false

def asNamed? : TypeExpr → Option NamedType
  | named n => some n
  | _ => none

def root : TypeExpr → TypeExpr
  | pointer t => t.root
  | t => t

def references : TypeExpr → Nat
  | pointer t => t.references + 1
  | _ => 0

/-- The types that the expression is built from. A named type has none: what it stands for is known
only where it is declared. -/
def children : TypeExpr → List TypeExpr
  | pointer t | slice t | array _ t | chan _ t => [t]
  | map k v => [k,v]
  | _ => []

/-- The type itself and everything below it. -/
def subexprs : TypeExpr → List TypeExpr
  | pointer t => pointer t :: t.subexprs
  | slice t => slice t :: t.subexprs
  | array n t => array n t :: t.subexprs
  | chan d t => chan d t :: t.subexprs
  | map k v => map k v :: (k.subexprs ++ v.subexprs)
  | t => [t]

theorem mem_subexprs_self (t : TypeExpr) : t ∈ t.subexprs := by
  cases t <;> simp [subexprs]

/-- How many expressions there are in a type, itself among them. -/
def size (t : TypeExpr) : Nat := t.subexprs.length

theorem size_pos (t : TypeExpr) : 0 < t.size := List.length_pos_of_mem t.mem_subexprs_self

theorem size_pointer (t : TypeExpr) : t.size < (pointer t).size := Nat.lt_succ_self _

theorem size_children (t : TypeExpr) : (t.children.flatMap subexprs).length < t.size := by
  cases t <;> simp [size,subexprs,children]

theorem subexprs_of_mem_children {t part : TypeExpr} (member : part ∈ t.children) :
    ∀ x ∈ part.subexprs, x ∈ t.subexprs := by
  intro x below
  cases t with
  | pointer _ | slice _ | array _ _ | chan _ _ =>
    cases List.mem_singleton.mp member
    exact List.mem_cons_of_mem _ below
  | map key value =>
    apply List.mem_cons_of_mem
    rcases List.mem_cons.mp member with rfl | last
    · exact List.mem_append_left _ below
    · cases List.mem_singleton.mp last
      exact List.mem_append_right _ below
  | error | basic _ | named _ | struct | interface => cases member

theorem subexprs_trans {t s x : TypeExpr} (outer : s ∈ t.subexprs) (inner : x ∈ s.subexprs) :
    x ∈ t.subexprs := by
  induction t with
  | pointer t ih | slice t ih | array n t ih | chan d t ih =>
    rcases List.mem_cons.mp outer with rfl | below
    · exact inner
    · exact List.mem_cons_of_mem _ (ih below)
  | map key value ihKey ihValue =>
    rcases List.mem_cons.mp outer with rfl | below
    · exact inner
    · apply List.mem_cons_of_mem
      rcases List.mem_append.mp below with left | right
      · exact List.mem_append_left _ (ihKey left)
      · exact List.mem_append_right _ (ihValue right)
  | error | basic _ | named _ | struct | interface =>
    cases List.mem_singleton.mp outer
    exact inner

end TypeExpr
end ProxyGen
