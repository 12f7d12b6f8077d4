import ProxyGen.Text.Order

/-!
The imports of a file. Every path has one alias and no alias belongs to two paths: a package whose name is
taken gets a number after it.
-/
namespace ProxyGen.Code

/-- Paths with their aliases, in the order in which they were first used. -/
structure Imports where
  entries : List (String × String)
  deriving DecidableEq

namespace Imports

def empty : Imports := ⟨[]⟩

def alias? (i : Imports) (path : String) : Option String := i.entries.lookup path

def aliases (i : Imports) : List String := i.entries.map (·.2)

/-- The name itself, then the name with the numbers from one on. -/
def candidate (package : String) : Nat → String
  | 0 => package
  | n + 1 => package ++ toString (n + 1)

/-- The first candidate from number `n` on that is not taken. A taken one is struck off, for no later
candidate can meet it again. -/
def freshFrom (package : String) (n : Nat) (taken : List String) : String :=
  if _ : candidate package n ∈ taken then
    freshFrom package (n + 1) (taken.erase (candidate package n))
  else candidate package n
termination_by taken.length
decreasing_by
  have positive := List.length_pos_of_mem ‹candidate package n ∈ taken›
  rw [List.length_erase_of_mem ‹_›]
  omega

def add (i : Imports) (path package : String) : Imports :=
  match i.alias? path with
  | some _ => i
  | none => ⟨i.entries ++ [(path,freshFrom package 0 i.aliases)]⟩

def qualifier (i : Imports) (path package : String) : String := (i.alias? path).getD package

def ofUses (uses : List (String × String)) : Imports :=
  uses.foldl (fun i use => i.add use.1 use.2) empty

def sorted (i : Imports) : List (String × String) := Text.sortBy (·.1) i.entries

end Imports
end ProxyGen.Code
