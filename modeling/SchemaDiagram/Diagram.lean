import SchemaDiagram.Layout.Anchors
import SchemaDiagram.Layout.Arrangement
import SchemaDiagram.Sql.Script

/-!
# Diagrams

A diagram is a schema with its layout and the lines of its relationships.
-/

namespace SchemaDiagram

structure Diagram (α : Type) where
  schema : Schema
  layout : Layout α
  edges : List (Edge α)

variable {α : Type} [Scalar α]

def Diagram.ofSchema (config : Config α) (measure : Measurer α) (s : Schema) : Diagram α :=
  let layout := s.layout config measure
  ⟨s, layout, layout.edges config s⟩

def Sql.schema? (script : Text) : Option Schema :=
  let s := extract script
  if s.isEmpty then none else some s

def Diagram.ofSql? (config : Config α) (measure : Measurer α) (script : Text) :
    Option (Diagram α) :=
  (Sql.schema? script).map (ofSchema config measure)

end SchemaDiagram
