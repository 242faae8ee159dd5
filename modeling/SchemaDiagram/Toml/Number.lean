import SchemaDiagram.Toml.Moment
import SchemaDiagram.Toml.Value

/-!
# Numbers

Integers are decimal, or hexadecimal, octal or binary behind `0x`, `0o` or `0b`, and have 64 bits. A
float has a fraction or an exponent or both. Underscores may stand between digits, and a decimal
number has no leading zero.
-/

namespace SchemaDiagram.Toml

def ungroup? (isDigit : Char → Bool) (t : Text) : Option Text :=
  let groups := t.splitOn '_'
  if groups.all fun g => !g.isEmpty && g.all isDigit then some groups.flatten else none

def wholeDigits? (t : Text) : Option Text := do
  let digits ← ungroup? Text.isAsciiDigit t
  if digits.head? = some '0' && digits.length ≠ 1 then none else some digits

def integer? (i : Int) : Option Value :=
  if -9223372036854775808 ≤ i && i ≤ 9223372036854775807 then some (.integer i) else none

def baseDigit (c : Char) : Nat :=
  if Text.isAsciiDigit c then Decimal.digitValue c else c.toLower.toNat - 'a'.toNat + 10

def inBase? (base : Nat) (isDigit : Char → Bool) (t : Text) : Option Value := do
  let digits ← ungroup? isDigit t
  integer? (digits.foldl (fun n c => base * n + baseDigit c) 0 : Nat)

def isHexDigit (c : Char) : Bool :=
  Text.isAsciiDigit c || 'a' ≤ c.toLower && c.toLower ≤ 'f'

def isOctalDigit (c : Char) : Bool := '0' ≤ c && c ≤ '7'

def isBinaryDigit (c : Char) : Bool := c = '0' || c = '1'

def readInteger? (t : Text) : Option Value :=
  match t with
  | '0' :: 'x' :: digits => inBase? 16 isHexDigit digits
  | '0' :: 'o' :: digits => inBase? 8 isOctalDigit digits
  | '0' :: 'b' :: digits => inBase? 2 isBinaryDigit digits
  | t => do
    let (negative, digits) := Decimal.splitSign t
    let n := Decimal.ofDigits (← wholeDigits? digits)
    integer? (if negative then -(n : Int) else n)

def readExponent? : Text → Option Int
  | [] => some 0
  | _ :: t => do
    let (negative, digits) := Decimal.splitSign t
    let n := Decimal.ofDigits (← ungroup? Text.isAsciiDigit digits)
    return if negative then -(n : Int) else n

/-- The digits behind the point; none for no point. -/
def readFraction? : Text → Option Text
  | [] => some []
  | _ :: digits => ungroup? Text.isAsciiDigit digits

/-- The float nearest to the number; a number beyond the greatest float is refused. -/
def readFloat? (t : Text) : Option Value := do
  let (negative, t) := Decimal.splitSign t
  if t = Text.ofString "inf" then
    return .float (if negative then -Float64.infinity else Float64.infinity)
  if t = Text.ofString "nan" then return .float (Float64.infinity - Float64.infinity)
  let (mantissa, exponent) := t.span fun c => c ≠ 'e' && c ≠ 'E'
  let (whole, fraction) := mantissa.span (· ≠ '.')
  if exponent.isEmpty && fraction.isEmpty then none
  let whole ← wholeDigits? whole
  let fraction ← readFraction? fraction
  let e ← readExponent? exponent
  let d : Decimal := ⟨negative, Decimal.ofDigits (whole ++ fraction), e - fraction.length⟩
  if d.toFloat == Float64.infinity then none else some (.float d.toFloat)

def readWord? (t : Text) : Option Value :=
  if t = Text.ofString "true" then some (.boolean true)
  else if t = Text.ofString "false" then some (.boolean false)
  else if isMoment t then some (.moment t)
  else (readInteger? t).or (readFloat? t)

end SchemaDiagram.Toml
