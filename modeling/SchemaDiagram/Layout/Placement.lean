import SchemaDiagram.Layout.Config
import SchemaDiagram.Layout.Box

/-!
# Placement

The first arrangement: layers below each other, each centred against the widest one, and the tables
of a layer side by side.
-/

namespace SchemaDiagram

abbrev Boxes (α : Type) (n : Nat) := Vector (Box α) n

namespace Boxes

variable {α : Type} {n : Nat}

def moveTo (boxes : Boxes α n) (t : Fin n) (x y : α) : Boxes α n :=
  boxes.set t { boxes.get t with x, y } t.isLt

def moveToX (boxes : Boxes α n) (t : Fin n) (x : α) : Boxes α n :=
  boxes.set t { boxes.get t with x } t.isLt

variable [Scalar α]

def ofSizes (sizes : Vector (Size α) n) : Boxes α n :=
  sizes.map fun s => ⟨Scalar.ofNat 0, Scalar.ofNat 0, s.width, s.height⟩

def layerWidth (gap : α) (boxes : Boxes α n) (layer : List (Fin n)) : α :=
  Scalar.sum (layer.map fun t => (boxes.get t).width) + gap * Scalar.ofNat (layer.length - 1)

def layerHeight (boxes : Boxes α n) (layer : List (Fin n)) : α :=
  (layer.map fun t => (boxes.get t).height).foldl Scalar.max (Scalar.ofNat 0)

def placeLayer (gap y : α) (boxes : Boxes α n) (x : α) : List (Fin n) → Boxes α n
  | [] => boxes
  | t :: rest =>
    placeLayer gap y (boxes.moveTo t x y) (x + ((boxes.get t).width + gap)) rest

/-- The layers below each other from `y` on, centred against a layer of the given width. -/
def placeLayersFrom (config : Config α) (widest : α) (boxes : Boxes α n) (y : α) :
    List (List (Fin n)) → Boxes α n
  | [] => boxes
  | layer :: below =>
    let x := config.paddingX + Scalar.half (widest - boxes.layerWidth config.gapX layer)
    placeLayersFrom config widest (boxes.placeLayer config.gapX y x layer)
      (y + (boxes.layerHeight layer + config.gapY)) below

def placeLayers (config : Config α) (boxes : Boxes α n) (layers : List (List (Fin n))) :
    Boxes α n :=
  let widest := (layers.map (boxes.layerWidth config.gapX)).foldl Scalar.max (Scalar.ofNat 0)
  boxes.placeLayersFrom config widest config.paddingY layers

end Boxes

end SchemaDiagram
