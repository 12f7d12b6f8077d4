/-!
Tables of code points. A property of characters is a list of arithmetic progressions in increasing
order; a mapping of characters attaches a distance to each progression.
-/
namespace ProxyGen.Text

/-- Progressions `(first, last, step)` of code points, increasing and without overlap. -/
abbrev Runs := List (Nat × Nat × Nat)

/-- Progressions of code points with the distance from each of them to its image. -/
abbrev Shifts := List (Nat × Nat × Nat × Int)

/-- Membership in a table; the search ends at the first progression that starts above `n`. -/
def Runs.contains : Runs → Nat → Bool
  | [], _ => false
  | (first, last, step) :: rest, n =>
    if n < first then false
    else if n ≤ last then (n - first) % step == 0
    else Runs.contains rest n

/-- The image of `n`, which is `n` itself where the table has no entry. -/
def Shifts.image : Shifts → Nat → Nat
  | [], n => n
  | (first, last, step, distance) :: rest, n =>
    if n < first then n
    else if n ≤ last then
      if (n - first) % step == 0 then (n + distance).toNat else n
    else Shifts.image rest n

end ProxyGen.Text
