/-!
# The nearest float

Rounding of an exact fraction to a 64-bit float: to the nearest one, ties to the even one, and to
infinity beyond the greatest.
-/

namespace SchemaDiagram.Float64

/-- The whole number nearest to `num / den`, ties to the even one. -/
def roundDiv (num den : Nat) : Nat :=
  let q := num / den
  let twice := 2 * (num % den)
  if twice < den then q
  else if den < twice then q + 1
  else if q % 2 = 0 then q else q + 1

def scaled (num den : Nat) (k : Int) : Nat × Nat :=
  (num <<< k.toNat, den <<< (-k).toNat)

def floorLog2 (num den : Nat) : Int :=
  let k : Int := (Nat.log2 num : Int) - Nat.log2 den
  let (num', den') := scaled num den (-k)
  if den' ≤ num' then k else k - 1

def minExponent : Int := -1074

/-- The number of fractions that share an exponent. -/
def binade : Nat := 0x10000000000000

def infinityBits : Nat := 0x7FF0000000000000

def signBit : Nat := 0x8000000000000000

/-- The bits of the float nearest to `num / den`. -/
def nearestBits (num den : Nat) : Nat :=
  if num = 0 then 0
  else
    let k := floorLog2 num den - 52
    let k := if k < minExponent then minExponent else k
    let (num', den') := scaled num den (-k)
    let bits := (k - minExponent).toNat * binade + roundDiv num' den'
    if infinityBits < bits then infinityBits else bits

def nearest (negative : Bool) (num den : Nat) : Float :=
  let sign := if negative then signBit else 0
  Float.ofBits (.ofNat (sign + nearestBits num den))

end SchemaDiagram.Float64
