import SchemaDiagram.Layout.Basic
import SchemaDiagram.Layout.Layers
import SchemaDiagram.Layout.Origin
import SchemaDiagram.Layout.Relaxation
import SchemaDiagram.Layout.Separation
import SchemaDiagram.Layout.TableSize

/-!
# The arrangement of a schema

Tables are put into layers, the layers in order, and the boxes placed, relaxed, separated and moved
to the origin. Of tables with one name the first gives the box.
-/

namespace SchemaDiagram

variable {α : Type} [Scalar α]

def Graph.arrange {n : Nat} (g : Graph n) (config : Config α) (sizes : Vector (Size α) n)
    (layers : List (List (Fin n))) : Boxes α n :=
  let placed := (Boxes.ofSizes sizes).placeLayers config layers
  ((g.relax config layers placed).separate config layers).alignToPadding config

/-- The layout that holds the given boxes, with the padding right of them and below. -/
def Layout.ofBoxes (config : Config α) (boxes : NameMap (Box α)) (layers : List (List Text)) :
    Layout α :=
  let layout : Layout α := { Layout.empty with boxes, layers }
  match layout.bounds? with
  | none => layout
  | some bounds =>
    { layout with
      width := bounds.right + config.paddingX
      height := bounds.bottom + config.paddingY }

def Layout.ofTables (config : Config α) (measure : Measurer α) (tables : List Table)
    (relationships : List Relationship) : Layout α :=
  let g := Graph.ofRelationships tables relationships
  let layers := g.orderLayers g.layers
  let sizes := Vector.ofFn fun t : Fin tables.length => (tables.get t).size config measure
  let boxes := g.arrange config sizes layers
  let named := (tables.zip boxes.toList).foldl (fun m (t, b) => m.insertIfNew t.name b) .empty
  .ofBoxes config named (layers.map (·.map fun t => (tables.get t).name))

def Schema.layout (config : Config α) (measure : Measurer α) (s : Schema) : Layout α :=
  .ofTables config measure s.tables s.relationships

end SchemaDiagram
