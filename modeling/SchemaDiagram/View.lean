import SchemaDiagram.Layout.Basic
import SchemaDiagram.Layout.Config
import SchemaDiagram.Schema

/-!
# Views

A view maps the world of the layout to a screen: scaled first and then moved. It can be panned,
zoomed about a point of the screen, and fitted to a whole layout. Points of the world are looked up
among the tables and among their rows.
-/

namespace SchemaDiagram

structure View (α : Type) where
  scale : α
  offsetX : α
  offsetY : α
  deriving DecidableEq, Repr

namespace View

variable {α : Type} [Scalar α]

def identity : View α := ⟨Scalar.ofNat 1, Scalar.ofNat 0, Scalar.ofNat 0⟩

def minScale : α := Scalar.ratio 1 10

def maxScale : α := Scalar.ofNat 4

def maxFitScale : α := Scalar.ratio 3 2

def fitPadding : α := Scalar.ofNat 60

def toWorld (v : View α) (x y : α) : α × α :=
  ((x - v.offsetX) / v.scale, (y - v.offsetY) / v.scale)

def toScreen (v : View α) (x y : α) : α × α :=
  (x * v.scale + v.offsetX, y * v.scale + v.offsetY)

def pan (v : View α) (dx dy : α) : View α :=
  { v with offsetX := v.offsetX + dx, offsetY := v.offsetY + dy }

/-- Zooms by `factor` within the bounds; the point of the screen keeps its place. -/
def zoomAt (v : View α) (factor x y : α) : View α :=
  let scale := Scalar.clamp minScale maxScale (v.scale * factor)
  let ratio := scale / v.scale
  ⟨scale, x - (x - v.offsetX) * ratio, y - (y - v.offsetY) * ratio⟩

def percent (v : View α) : Int := Scalar.toInt (Scalar.round (v.scale * Scalar.ofNat 100))

/-- The offset that centres an extent from `start` on, padding included, in the viewport. -/
def centering (scale viewport extent start : α) : α :=
  Scalar.half (viewport - extent * scale) - start * scale + fitPadding * scale

/-- The view that centres the bounds in a viewport. -/
def fitBounds (bounds : Bounds α) (width height : α) : View α :=
  let padding := fitPadding * Scalar.ofNat 2
  let contentWidth := bounds.right - bounds.left + padding
  let contentHeight := bounds.bottom - bounds.top + padding
  let scale :=
    Scalar.min (Scalar.min (width / contentWidth) (height / contentHeight)) maxFitScale
  ⟨scale, centering scale width contentWidth bounds.left,
    centering scale height contentHeight bounds.top⟩

def fit? (l : Layout α) (width height : α) : Option (View α) :=
  l.bounds?.map (fitBounds · width height)

end View

namespace Layout

variable {α : Type} [Scalar α] (l : Layout α)

def tableAt? (tables : List Table) (x y : α) : Option Table :=
  tables.find? fun t => (l.box? t.name).any fun b => b.Contains x y

def IsOffRows (config : Config α) (b : Box α) (x y : α) : Prop :=
  x < b.x ∨ b.right < x ∨ y < b.y + config.headerHeight ∨ b.bottom < y

instance (config : Config α) (b : Box α) (x y : α) : Decidable (IsOffRows config b x y) := by
  unfold IsOffRows; infer_instance

def columnOf? (config : Config α) (t : Table) (x y : α) : Option Column := do
  let b ← l.box? t.name
  if IsOffRows config b x y then none
  else t.columns[Scalar.toIndex ((y - b.y - config.headerHeight) / config.rowHeight)]?

def columnAt? (config : Config α) (tables : List Table) (x y : α) : Option (Table × Column) :=
  tables.findSome? fun t => (l.columnOf? config t x y).map (t, ·)

end Layout

end SchemaDiagram
