import SchemaDiagram.Layout.Placement

/-!
# The origin

The finished diagram keeps the padding to the left and above. All boxes move by one whole distance
each way, so whole gaps stay as they are.
-/

namespace SchemaDiagram.Boxes

variable {α : Type} [Scalar α] {n : Nat}

def shift (boxes : Boxes α n) (dx dy : α) : Boxes α n :=
  boxes.map fun b => { b with x := Scalar.round (b.x + dx), y := Scalar.round (b.y + dy) }

/-- Boxes without a finite left and upper bound stay where they are. -/
def alignToPadding (config : Config α) (boxes : Boxes α n) : Boxes α n :=
  match Scalar.least? (boxes.toList.map (·.x)), Scalar.least? (boxes.toList.map (·.y)) with
  | some left, some top =>
    if Scalar.isFinite left && Scalar.isFinite top then
      boxes.shift (Scalar.round (config.paddingX - left)) (Scalar.round (config.paddingY - top))
    else boxes
  | _, _ => boxes

end SchemaDiagram.Boxes
