import ProxyGen.Kind

/-!
How badly a type needs a proxy, and what a type passes on to the types whose methods return it.
-/
namespace ProxyGen

/-- A soft proxy stands in for an interface under the interface's own type; a hard one is a new type. -/
inductive Status
  | none
  | soft
  | hard
  deriving DecidableEq

namespace Status

def rank : Status → Nat
  | none => 0
  | soft => 1
  | hard => 2

instance : LE Status := ⟨fun a b => a.rank ≤ b.rank⟩

instance : LT Status := ⟨fun a b => a.rank < b.rank⟩

instance (a b : Status) : Decidable (a ≤ b) := inferInstanceAs (Decidable (a.rank ≤ b.rank))

instance (a b : Status) : Decidable (a < b) := inferInstanceAs (Decidable (a.rank < b.rank))

def name : Status → String
  | none => "none"
  | soft => "soft"
  | hard => "hard"

/-- The least status of a type of kind `kind` that returns a type of this status. Only an interface can
be met by a soft proxy. -/
def passedTo (s : Status) (kind : Kind) : Status :=
  if s = soft ∧ kind ≠ .interface then hard else s

theorem rank_le_two (s : Status) : s.rank ≤ 2 := by cases s <;> decide

theorem le_passedTo (s : Status) (kind : Kind) : s ≤ s.passedTo kind := by
  cases s <;> cases kind <;> decide

end Status
end ProxyGen
