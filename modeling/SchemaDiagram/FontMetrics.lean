import SchemaDiagram.Decimal.Basic
import SchemaDiagram.Layout.TableSize
import SchemaDiagram.Text.Blank
import SchemaDiagram.Text.Columns

/-!
# Font metrics

An estimate of the width of a text where nothing can be drawn: each display column is as wide as a
fixed part of the font's size. The size is the one in the font's description, such as
`bold 13px monospace`, that is given in pixels.
-/

namespace SchemaDiagram

structure FontMetrics where
  /-- The width of a column as a part of the font's size. -/
  columnRatio : Float := Scalar.ratio 6 10
  /-- The size of a font that tells none. -/
  fallbackSize : Float := 12

namespace FontMetrics

def withoutPixels? (word : Text) : Option Text :=
  if Text.ofString "px" <:+ word then some (word.take (word.length - 2)) else none

def fontSize? (font : Text) : Option Float := do
  let number ← (Text.words font).findSome? withoutPixels?
  let size ← Float64.ofText? number
  if 0 < size then some size else none

def columnWidth (m : FontMetrics) (font : Text) : Float :=
  (fontSize? font).getD m.fallbackSize * m.columnRatio

def measure (m : FontMetrics) : Measurer Float := fun font text =>
  Scalar.ofNat (Text.columns text) * m.columnWidth font

end FontMetrics

end SchemaDiagram
