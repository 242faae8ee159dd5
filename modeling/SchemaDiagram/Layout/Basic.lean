import SchemaDiagram.NameMap
import SchemaDiagram.Layout.Box

/-!
# Layouts

A layout gives each table its box, by name. A box is found under the exact name or else under the
first name that is the same but for case. Boxes can be moved; the canvas grows with them and never
shrinks.
-/

namespace SchemaDiagram

structure Layout (α : Type) where
  boxes : NameMap (Box α)
  /-- The names of the tables in each layer. -/
  layers : List (List Text)
  /-- The size of the canvas. -/
  width : α
  height : α

structure Bounds (α : Type) where
  left : α
  top : α
  right : α
  bottom : α
  deriving DecidableEq, Repr

namespace Layout

variable {α : Type}

def key? (l : Layout α) (name : Text) : Option Text :=
  if l.boxes.contains name then some name else l.boxes.keys.find? (Text.SameName · name)

def box? (l : Layout α) (name : Text) : Option (Box α) := l.key? name >>= l.boxes.find?

/-- The layout with `f` applied to the box of `name`, if there is one; the canvas stays. -/
def modifyBox (l : Layout α) (name : Text) (f : Box α → Box α) : Layout α :=
  match l.key? name with
  | none => l
  | some key => { l with boxes := l.boxes.modify key f }

def layerOf? (l : Layout α) (name : Text) : Option Nat :=
  l.layers.findIdx? fun layer => Text.isAmong name layer

variable [Scalar α]

def empty : Layout α := ⟨.empty, [], Scalar.ofNat 0, Scalar.ofNat 0⟩

def move? (l : Layout α) (name : Text) (x y : α) : Option (Layout α) := do
  let b ← l.box? name
  let moved := { b with x, y }
  return { l.modifyBox name fun _ => moved with
    width := Scalar.max l.width moved.right
    height := Scalar.max l.height moved.bottom }

def bounds? (l : Layout α) : Option (Bounds α) := do
  let boxes := l.boxes.values
  return {
    left := ← Scalar.least? (boxes.map (·.x))
    top := ← Scalar.least? (boxes.map (·.y))
    right := ← Scalar.greatest? (boxes.map (·.right))
    bottom := ← Scalar.greatest? (boxes.map (·.bottom)) }

end Layout

end SchemaDiagram
