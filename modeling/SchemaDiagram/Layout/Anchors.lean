import SchemaDiagram.Layout.Basic
import SchemaDiagram.Layout.Config
import SchemaDiagram.Schema

/-!
# Anchors

The line of a relationship leaves and enters the boxes of its two tables at the height of a column's
row, on the sides that face each other. The line of a table that refers to itself leaves and enters
on the right.
-/

namespace SchemaDiagram

inductive Side where
  | left
  | right
  deriving DecidableEq, Repr

structure Anchor (α : Type) where
  x : α
  y : α
  side : Side
  deriving DecidableEq, Repr

structure Edge (α : Type) where
  /-- The number of the relationship in the schema. -/
  relationship : Nat
  source : Anchor α
  target : Anchor α
  deriving DecidableEq, Repr

variable {α : Type} [Scalar α]

def Box.sideX (b : Box α) : Side → α
  | .left => b.x
  | .right => b.right

/-- The row of the first column that the endpoint lists, or the first row if it lists none. -/
def Endpoint.row (e : Endpoint) (t : Table) : Nat :=
  (t.columns.findIdx? fun c => Text.isAmong c.name e.columns).getD 0

def Box.rowMiddle (config : Config α) (b : Box α) (row : Nat) : α :=
  b.y + config.headerHeight + Scalar.ofNat row * config.rowHeight + Scalar.half config.rowHeight

def Relationship.sides (r : Relationship) (source target : Box α) : Side × Side :=
  if r.isSelfReference then (.right, .right)
  else if source.centerX < target.centerX then (.right, .left)
  else (.left, .right)

namespace Layout

/-- Where the line of a relationship attaches; none if a table is unknown or has no box. -/
def anchors? (config : Config α) (l : Layout α) (s : Schema) (r : Relationship) :
    Option (Anchor α × Anchor α) := do
  let sourceTable ← s.table? r.source.table
  let targetTable ← s.table? r.target.table
  let source ← l.box? sourceTable.name
  let target ← l.box? targetTable.name
  let (sourceSide, targetSide) := r.sides source target
  return (
    ⟨source.sideX sourceSide, source.rowMiddle config (r.source.row sourceTable), sourceSide⟩,
    ⟨target.sideX targetSide, target.rowMiddle config (r.target.row targetTable), targetSide⟩)

def edges (config : Config α) (l : Layout α) (s : Schema) : List (Edge α) :=
  s.relationships.zipIdx.filterMap fun (r, i) =>
    (l.anchors? config s r).map fun (source, target) => ⟨i, source, target⟩

end Layout

end SchemaDiagram
