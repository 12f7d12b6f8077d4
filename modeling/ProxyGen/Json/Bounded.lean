import ProxyGen.Double
import ProxyGen.Json.Basic

/-!
Values that can be held in memory before it is known what they are read as: their nesting is limited
and their numbers lie within the range of doubles.
-/
namespace ProxyGen.Json

def digitValue (c : Char) : Nat := c.toNat - '0'.toNat

def digitsValue (s : List Char) : Nat := s.foldl (fun n c => n * 10 + digitValue c) 0

/-- The first whole number that a significand cannot hold. -/
def significandBound : Nat := Nat.pow 2 64

/-- The significand `n` with further digits, as many of them as it can hold, and their count. -/
def appendDigits (n : Nat) : List Char → Nat × Nat
  | [] => (n,0)
  | d :: ds =>
    if n * 10 + digitValue d < significandBound then
      let (n,count) := appendDigits (n * 10 + digitValue d) ds
      (n,count + 1)
    else (n,0)

structure Scaled where
  significand : Nat
  exponent : Int
  deriving DecidableEq

/-- What is read of a mantissa. The digits before the point that the significand cannot hold raise the
exponent; those after it are dropped. -/
def Scaled.ofMantissa (whole fraction : List Char) : Scaled :=
  let (n,held) := appendDigits 0 whole
  let (n,places) := appendDigits n fraction
  ⟨n,(whole.length - held : Nat) - (places : Int)⟩

/-- The value of an exponent with its sign; empty text stands for zero. -/
def exponentValue : List Char → Int
  | '-' :: s => -(digitsValue s : Int)
  | '+' :: s => digitsValue s
  | s => digitsValue s

def Scaled.ofLiteral (literal : String) : Scaled :=
  let isExponentMark (c : Char) := c == 'e' || c == 'E'
  let s := literal.toList.dropWhile (· == '-')
  let mantissa := s.takeWhile fun c => !isExponentMark c
  let exponent := exponentValue ((s.dropWhile fun c => !isExponentMark c).drop 1)
  let unscaled := ofMantissa (mantissa.takeWhile (· != '.')) ((mantissa.dropWhile (· != '.')).drop 1)
  { unscaled with exponent := unscaled.exponent + exponent }

/-- The product lies in the range of doubles. The significand and the power of ten are rounded to doubles
before they are multiplied, so the power must lie in that range itself. -/
def Scaled.isFinite (x : Scaled) : Bool :=
  x.significand == 0 || x.exponent < 0 ||
    (x.exponent ≤ Double.maxPowerOfTen &&
      Double.nearest x.significand * Double.nearest (Nat.pow 10 x.exponent.toNat) < Double.infinityBound)

mutual

/-- At most `depth` arrays and objects stand inside one another, and every part can be read. -/
def bounded (depth : Nat) : Json → Bool
  | null | bool _ | string _ => true
  | number literal => (Scaled.ofLiteral literal).isFinite
  | array items => 0 < depth && boundedItems (depth - 1) items
  | object fields => 0 < depth && boundedFields (depth - 1) fields
  | unreadable => false

def boundedItems (depth : Nat) : List Json → Bool
  | [] => true
  | item :: items => item.bounded depth && boundedItems depth items

def boundedFields (depth : Nat) : List (String × Json) → Bool
  | [] => true
  | field :: fields => field.2.bounded depth && boundedFields depth fields

end

end ProxyGen.Json
