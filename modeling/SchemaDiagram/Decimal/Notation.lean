import SchemaDiagram.Decimal.Shortest

/-!
# Decimal notation

A float is written with the fewest digits that read back. A number whose first digit stands near
the point is written out and always has a point; others have an exponent. What is not finite has no
such text.
-/

namespace SchemaDiagram.Float64

/-- The first digit stands at one of these places in a number that is written out. -/
def writtenOut (place : Int) : Bool := -5 ≤ place && place ≤ 15

def zeros (n : Nat) : Text := List.replicate n '0'

def digitsOf (n : Nat) : Text := Nat.toDigits 10 n

/-- The digits written out, when the first one stands at `place`. -/
def positional (digits : Text) (place : Int) : Text :=
  if place < 0 then '0' :: '.' :: zeros (-place - 1).toNat ++ digits
  else
    let whole := place.toNat + 1
    let fraction := digits.drop whole
    digits.take whole ++ zeros (whole - digits.length) ++
      '.' :: if fraction.isEmpty then ['0'] else fraction

/-- The digits with a point behind the first one, and the exponent of ten with its sign. -/
def scientific (digits : Text) (place : Int) : Text :=
  let fraction := digits.drop 1
  let exponent := if place < 0 then '-' :: digitsOf (-place).toNat else '+' :: digitsOf place.toNat
  digits.take 1 ++ (if fraction.isEmpty then [] else '.' :: fraction) ++ 'e' :: exponent

def Magnitude.text (m : Magnitude) : Text :=
  let (coefficient, last) := m.shortest
  let all := digitsOf coefficient
  let place := last + all.length - 1
  let digits := (all.reverse.dropWhile (· = '0')).reverse
  if writtenOut place then positional digits place else scientific digits place

def toText? (x : Float) : Option Text :=
  if !x.isFinite then none
  else
    let bits := x.toBits.toNat
    let magnitude := bits % signBit
    let sign := if bits = magnitude then [] else ['-']
    some (sign ++ if magnitude = 0 then Text.ofString "0.0" else (Magnitude.ofBits magnitude).text)

end SchemaDiagram.Float64
