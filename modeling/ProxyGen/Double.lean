/-!
Doubles that stand for whole numbers: what a natural number is rounded to, and where infinity begins.
-/
namespace ProxyGen.Double

/-- The multiple of `unit` nearest to `n`; a tie goes to the even multiple. -/
def nearestMultiple (unit n : Nat) : Nat :=
  let below := n / unit
  let twiceRest := 2 * (n % unit)
  if unit < twiceRest ∨ (twiceRest = unit ∧ below % 2 = 1) then (below + 1) * unit else below * unit

/-- The double nearest to `n`, without a limit on its size: a number of at most 53 binary digits, followed
by zeros. -/
def nearest (n : Nat) : Nat := nearestMultiple (Nat.pow 2 (n.log2 + 1 - 53)) n

/-- The least number that is rounded to infinity: it lies halfway between the largest double and the
power of two above that. -/
def infinityBound : Nat := Nat.pow 2 1024 - Nat.pow 2 970

/-- The largest `e` for which the power of ten `10 ^ e` lies below infinity. -/
def maxPowerOfTen : Nat := 308

end ProxyGen.Double
