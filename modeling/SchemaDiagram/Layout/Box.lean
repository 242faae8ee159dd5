import SchemaDiagram.Scalar

/-!
# Boxes

Tables are drawn as boxes. `y` grows downwards, so a box hangs from its top left corner.
-/

namespace SchemaDiagram

structure Size (α : Type) where
  width : α
  height : α
  deriving DecidableEq, Repr

structure Box (α : Type) where
  x : α
  y : α
  width : α
  height : α
  deriving DecidableEq, Repr

namespace Box

variable {α : Type} [Scalar α] (b : Box α)

def right : α := b.x + b.width

def bottom : α := b.y + b.height

def centerX : α := b.x + Scalar.half b.width

/-- Points on the border count as inside. -/
def Contains (x y : α) : Prop := b.x ≤ x ∧ x ≤ b.right ∧ b.y ≤ y ∧ y ≤ b.bottom

instance (x y : α) : Decidable (b.Contains x y) := by unfold Contains; infer_instance

end Box

end SchemaDiagram
