import SchemaDiagram.Schema

/-!
# The reference graph

The tables are the vertices, numbered in schema order, and each edge runs from a referencing table,
the child, to the referenced one, its parent. References of a table to itself and to unknown tables
make no edge, and a repeated reference makes no second one.
-/

namespace SchemaDiagram

structure Graph (n : Nat) where
  /-- Child and parent of each edge, in the order of the relationships. -/
  edges : List (Fin n × Fin n)
  deriving DecidableEq, Repr

def tableIndex? (tables : List Table) (name : Text) : Option (Fin tables.length) :=
  tables.findFinIdx? (Text.SameName ·.name name)

def Relationship.ends? (tables : List Table) (r : Relationship) :
    Option (Fin tables.length × Fin tables.length) := do
  return (← tableIndex? tables r.source.table, ← tableIndex? tables r.target.table)

namespace Graph

def ofRelationships (tables : List Table) (relationships : List Relationship) :
    Graph tables.length where
  edges := ((relationships.filterMap (·.ends? tables)).filter fun e => e.1 ≠ e.2).eraseDups

variable {n : Nat} (g : Graph n)

def parents (t : Fin n) : List (Fin n) :=
  g.edges.filterMap fun (child, parent) => if child = t then some parent else none

def children (t : Fin n) : List (Fin n) :=
  g.edges.filterMap fun (child, parent) => if parent = t then some child else none

def childCount (t : Fin n) : Nat := (g.children t).length

end Graph

end SchemaDiagram
