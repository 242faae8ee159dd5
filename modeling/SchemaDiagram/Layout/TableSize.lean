import SchemaDiagram.Layout.Box
import SchemaDiagram.Layout.Config
import SchemaDiagram.Schema
import SchemaDiagram.Text.Upper

/-!
# The size of a table's box

A table shows its name and below it one line for each column. Its box is wide enough for the widest
of these, as far as the settings' bounds allow.
-/

namespace SchemaDiagram

/-- The width of a text, the second argument, in a font. -/
abbrev Measurer (α : Type) := Text → Text → α

namespace Column

/-- Marks for a key, for a reference and for a column that is unique without being a key. -/
def icons (c : Column) : Text :=
  (if c.isPrimaryKey then ['🔑'] else []) ++ (if c.foreignKey.isSome then ['🔗'] else []) ++
    (if c.isUnique && !c.isPrimaryKey then ['◆'] else [])

def label (c : Column) : Text :=
  c.icons ++ ' ' :: c.name ++ ' ' :: ' ' :: Text.upperFull c.type

end Column

namespace Table

variable {α : Type} [Scalar α] (config : Config α) (measure : Measurer α) (t : Table)

def widestLine : α :=
  let header := measure config.headerFont t.name + config.headerMargin
  (t.columns.map fun c => measure config.columnFont c.label + config.rowMargin).foldl
    Scalar.max header

/-- A least width above the greatest one prevails. -/
def size : Size α where
  width := Scalar.ceil (Scalar.max
    (Scalar.min (t.widestLine config measure + config.widthPadding) config.maxWidth)
    config.minWidth)
  height := config.headerHeight + Scalar.ofNat t.columns.length * config.rowHeight +
    config.tablePadding

end Table

end SchemaDiagram
