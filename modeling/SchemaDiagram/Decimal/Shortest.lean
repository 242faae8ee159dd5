import SchemaDiagram.Decimal.Basic

/-!
# Shortest decimals

The decimal number of fewest digits that the nearest float of is the given one; of several the
nearest to it, and of two equally near the even one.

A finite float is `mantissa · 2 ^ exponent`. The numbers that round to it form an interval, which
holds its ends just if the mantissa is even. On each grid of powers of ten, coarse ones first, the
two neighbours of the float are tried.
-/

namespace SchemaDiagram.Float64

structure Magnitude where
  mantissa : Nat
  exponent : Int
  /-- The float below is only half as far away as the float above. -/
  isLeastOfExponent : Bool
  deriving DecidableEq, Repr

def Magnitude.ofBits (n : Nat) : Magnitude :=
  let field := n / binade
  let fraction := n % binade
  if field = 0 then ⟨fraction, minExponent, false⟩
  else ⟨binade + fraction, minExponent + field - 1, fraction = 0 && 1 < field⟩

namespace Magnitude

variable (m : Magnitude)

/-- Compares `coefficient · 10 ^ place` with `quarters / 4` units of the last binary place. -/
def compareDecimal (coefficient : Nat) (place : Int) (quarters : Nat) : Ordering :=
  compare
    ((coefficient * Nat.pow 10 place.toNat) <<< (2 - m.exponent).toNat)
    ((quarters * Nat.pow 10 (-place).toNat) <<< (m.exponent - 2).toNat)

/-- Whether `coefficient · 10 ^ place` rounds to the float. -/
def rounds (coefficient : Nat) (place : Int) : Bool :=
  let low := 4 * m.mantissa - if m.isLeastOfExponent then 1 else 2
  let high := 4 * m.mantissa + 2
  let endsCount := m.mantissa % 2 = 0
  match m.compareDecimal coefficient place low, m.compareDecimal coefficient place high with
  | .gt, .lt => true
  | .eq, _ => endsCount
  | _, .eq => endsCount
  | _, _ => false

def fraction : Nat × Nat := scaled m.mantissa 1 m.exponent

/-- The place of the first digit: the greatest `k` with `10 ^ k` at most the float. -/
def leadingPlace : Int :=
  let (num, den) := m.fraction
  let k := (floorLog2 num den * 30103).fdiv 100000
  if Nat.pow 10 (k + 1).toNat * den ≤ num * Nat.pow 10 (-(k + 1)).toNat then k + 1 else k

/-- The neighbour of the float on the grid of `10 ^ place` that rounds to it; of two the nearer. -/
def neighbour? (place : Int) : Option Nat :=
  let (num, den) := m.fraction
  let num := num * Nat.pow 10 (-place).toNat
  let den := den * Nat.pow 10 place.toNat
  let nearest := roundDiv num den
  let below := num / den
  let other := if nearest = below then below + 1 else below
  if m.rounds nearest place then some nearest
  else if m.rounds other place then some other
  else none

/-- Seventeen digits are always enough. -/
def maxDigits : Nat := 17

def shortest : Nat × Int :=
  let first := m.leadingPlace
  let grids := (List.range maxDigits).map fun i : Nat => first - i
  (grids.findSome? fun place => (m.neighbour? place).map (·, place)).getD (0, 0)

end Magnitude

end SchemaDiagram.Float64
