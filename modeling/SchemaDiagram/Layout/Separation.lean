import SchemaDiagram.Layout.Placement

/-!
# Separation

In each layer, tables that stand too close are pushed to the right. Places and the gap are made
whole first, so that a move by a whole distance keeps the gap.
-/

namespace SchemaDiagram.Boxes

variable {α : Type} [Scalar α] {n : Nat}

def roundLayer (boxes : Boxes α n) (layer : List (Fin n)) : Boxes α n :=
  layer.foldl (fun boxes t => boxes.moveToX t (Scalar.round (boxes.get t).x)) boxes

def leftToRight (boxes : Boxes α n) (layer : List (Fin n)) : List (Fin n) :=
  layer.mergeSort fun a b => Scalar.precedes (boxes.get a).x (boxes.get b).x

/-- Moves each table that stands less than `gap` right of the table before it; the first one
follows `prev`. -/
def pushRight (gap : α) (boxes : Boxes α n) (prev : Fin n) : List (Fin n) → Boxes α n
  | [] => boxes
  | t :: rest =>
    let least := (boxes.get prev).right + gap
    pushRight gap (if (boxes.get t).x < least then boxes.moveToX t least else boxes) t rest

def separateLayer (gap : α) (boxes : Boxes α n) (layer : List (Fin n)) : Boxes α n :=
  let rounded := boxes.roundLayer layer
  match rounded.leftToRight layer with
  | [] => rounded
  | first :: rest => rounded.pushRight gap first rest

def separate (config : Config α) (layers : List (List (Fin n))) (boxes : Boxes α n) :
    Boxes α n :=
  layers.foldl (separateLayer (Scalar.ceil config.minGap)) boxes

end SchemaDiagram.Boxes
