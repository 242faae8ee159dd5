/-!
# Order of floats

The minimum and the maximum of two floats are the one that is a number, if the other is not. The
order by keys is total.
-/

namespace SchemaDiagram.Float64

def infinity : Float := Float.ofBits 0x7FF0000000000000

def min (a b : Float) : Float :=
  if a.isNaN then b else if b.isNaN then a else if b < a then b else a

def max (a b : Float) : Float :=
  if a.isNaN then b else if b.isNaN then a else if a < b then b else a

/-- Orders floats by value, a negative zero before a positive one and NaN last. -/
def orderKey (x : Float) : UInt64 :=
  let bits := x.toBits
  if bits >>> 63 = 1 then ~~~bits else bits ||| 0x8000000000000000

end SchemaDiagram.Float64
