import SchemaDiagram.Decimal.Nearest
import SchemaDiagram.Float64
import SchemaDiagram.Text.Alphanumeric

/-!
# Decimal numbers

A decimal number is a signed whole number with an exponent of ten. It is read from the usual
notation, in which either side of the point may be missing but not both, and stands for the nearest
float.
-/

namespace SchemaDiagram

structure Decimal where
  negative : Bool
  coefficient : Nat
  exponent : Int
  deriving DecidableEq, Repr

namespace Decimal

def digitValue (c : Char) : Nat := c.toNat - '0'.toNat

def ofDigits (digits : Text) : Nat := digits.foldl (fun n c => 10 * n + digitValue c) 0

def splitSign : Text → Bool × Text
  | '-' :: rest => (true, rest)
  | '+' :: rest => (false, rest)
  | rest => (false, rest)

def splitDigits (t : Text) : Text × Text := t.span Text.isAsciiDigit

def splitFraction : Text → Text × Text
  | '.' :: rest => splitDigits rest
  | rest => ([], rest)

/-- The value of a whole exponent part; zero for none at all. -/
def exponent? : Text → Option Int
  | [] => some 0
  | mark :: rest =>
    if mark = 'e' || mark = 'E' then
      let (negative, digits) := splitSign rest
      if digits.isEmpty || !digits.all Text.isAsciiDigit then none
      else some (if negative then -(ofDigits digits : Int) else ofDigits digits)
    else none

def ofText? (t : Text) : Option Decimal :=
  let (negative, t) := splitSign t
  let (whole, t) := splitDigits t
  let (fraction, t) := splitFraction t
  if whole.isEmpty && fraction.isEmpty then none
  else (exponent? t).map fun e => ⟨negative, ofDigits (whole ++ fraction), e - fraction.length⟩

def farExponent : Nat := 400

def toFloat (d : Decimal) : Float :=
  if d.coefficient = 0 || d.exponent < -(farExponent + Nat.log2 d.coefficient : Int) then
    Float64.nearest d.negative 0 1
  else if (farExponent : Int) < d.exponent then
    Float64.nearest d.negative (Nat.pow 10 farExponent) 1
  else
    Float64.nearest d.negative (d.coefficient * Nat.pow 10 d.exponent.toNat)
      (Nat.pow 10 (-d.exponent).toNat)

end Decimal

/-- The float that a text writes: a decimal number, or infinity or NaN in any case. -/
def Float64.ofText? (t : Text) : Option Float :=
  let (negative, name) := Decimal.splitSign t
  if Text.isAmong name [Text.ofString "inf", Text.ofString "infinity"] then
    some (if negative then -Float64.infinity else Float64.infinity)
  else if Text.SameName name (Text.ofString "nan") then
    some (Float64.infinity - Float64.infinity)
  else (Decimal.ofText? t).map Decimal.toFloat

end SchemaDiagram
