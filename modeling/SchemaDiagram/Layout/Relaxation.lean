import SchemaDiagram.Layout.Graph
import SchemaDiagram.Layout.Placement

/-!
# Relaxation

Tables are pulled sideways towards the tables they are related to. A pass goes down the layers and
pulls each table towards its parents, then up again and pulls it towards its children. A table that
has moved counts in its new place from then on.
-/

namespace SchemaDiagram

variable {α : Type} [Scalar α] {n : Nat}

namespace Boxes

def meanCenter? (boxes : Boxes α n) (tables : List (Fin n)) : Option α :=
  Scalar.mean? (tables.map fun t => (boxes.get t).centerX)

/-- Moves `t` towards the centre of its neighbours by a part `strength` of the way. -/
def pull (strength : α) (neighbours : Fin n → List (Fin n)) (boxes : Boxes α n) (t : Fin n) :
    Boxes α n :=
  match boxes.meanCenter? (neighbours t) with
  | none => boxes
  | some center =>
    boxes.moveToX t ((boxes.get t).x + (center - (boxes.get t).centerX) * strength)

end Boxes

namespace Graph

variable (g : Graph n) (config : Config α)

def pullDown (layers : List (List (Fin n))) (boxes : Boxes α n) : Boxes α n :=
  (layers.drop 1).flatten.foldl (Boxes.pull config.forwardPull g.parents) boxes

def pullUp (layers : List (List (Fin n))) (boxes : Boxes α n) : Boxes α n :=
  layers.dropLast.reverse.flatten.foldl (Boxes.pull config.backwardPull g.children) boxes

def pass (layers : List (List (Fin n))) (boxes : Boxes α n) : Boxes α n :=
  g.pullUp config layers (g.pullDown config layers boxes)

/-- All passes. A single layer has no other to be pulled to, whatever their number. -/
def relax (layers : List (List (Fin n))) (boxes : Boxes α n) : Boxes α n :=
  if layers.length ≤ 1 then boxes
  else Nat.repeat (g.pass config layers) config.relaxationPasses boxes

theorem pass_of_length_le_one {layers : List (List (Fin n))} (h : layers.length ≤ 1)
    (boxes : Boxes α n) : g.pass config layers boxes = boxes := by
  match layers, h with
  | [], _ => rfl
  | [_], _ => rfl

theorem relax_eq_repeat (layers : List (List (Fin n))) (boxes : Boxes α n) :
    g.relax config layers boxes =
      Nat.repeat (g.pass config layers) config.relaxationPasses boxes := by
  unfold relax
  split
  · next h =>
    induction config.relaxationPasses with
    | zero => rfl
    | succ k ih => rw [Nat.repeat, ← ih, pass_of_length_le_one g config h]
  · rfl

end Graph

end SchemaDiagram
