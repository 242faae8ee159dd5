import SchemaDiagram.Float64

/-!
# Scalars

The arithmetic that geometry needs. Diagrams are drawn with `Float`; over `Rat` the same functions
are exact.
-/

namespace SchemaDiagram

class Scalar (α : Type) extends Add α, Sub α, Mul α, Div α, LT α, LE α where
  decLt : DecidableLT α
  decLe : DecidableLE α
  ofNat : Nat → α
  min : α → α → α
  max : α → α → α
  /-- The least of several scalars, those that are no numbers left out. -/
  least? : List α → Option α
  /-- The greatest of several scalars, those that are no numbers left out. -/
  greatest? : List α → Option α
  ceil : α → α
  /-- To the nearest whole number, halves away from zero. -/
  round : α → α
  isFinite : α → Bool
  /-- A total order, which agrees with `≤` on numbers. -/
  precedes : α → α → Bool
  /-- The greatest natural number below; zero for what is negative or no number. -/
  toIndex : α → Nat
  /-- The integer of a whole number; zero for what is no number. -/
  toInt : α → Int

instance Scalar.decidableLT {α : Type} [Scalar α] : DecidableLT α := Scalar.decLt

instance Scalar.decidableLE {α : Type} [Scalar α] : DecidableLE α := Scalar.decLe

namespace Scalar

variable {α : Type} [Scalar α]

def sum (l : List α) : α := l.foldl (· + ·) (ofNat 0)

def ratio (num den : Nat) : α := ofNat num / ofNat den

def half (x : α) : α := x / ofNat 2

def clamp (low high x : α) : α :=
  if x < low then low else if high < x then high else x

def mean? (l : List α) : Option α :=
  if l.isEmpty then none else some (sum l / ofNat l.length)

end Scalar

/-- Conversion to an integer stops at the bounds of 64 bits. -/
instance : Scalar Float where
  decLt := inferInstance
  decLe := inferInstance
  ofNat := Float.ofNat
  min := Float64.min
  max := Float64.max
  least?
    | [] => none
    | l => some (l.foldl Float64.min Float64.infinity)
  greatest?
    | [] => none
    | l => some (l.foldl Float64.max (-Float64.infinity))
  ceil := Float.ceil
  round := Float.round
  isFinite := Float.isFinite
  precedes a b := Float64.orderKey a ≤ Float64.orderKey b
  toIndex x := x.floor.toUInt64.toNat
  toInt x := x.toInt64.toInt

instance : Scalar Rat where
  decLt := inferInstance
  decLe := inferInstance
  ofNat n := n
  min a b := if b < a then b else a
  max a b := if a < b then b else a
  least?
    | [] => none
    | x :: l => some (l.foldl (fun a b => if b < a then b else a) x)
  greatest?
    | [] => none
    | x :: l => some (l.foldl (fun a b => if a < b then b else a) x)
  ceil x := x.ceil
  round x := if 0 ≤ x then (x + 1 / 2).floor else (x - 1 / 2).ceil
  isFinite _ := true
  precedes a b := a ≤ b
  toIndex x := x.floor.toNat
  toInt x := x.floor

end SchemaDiagram
