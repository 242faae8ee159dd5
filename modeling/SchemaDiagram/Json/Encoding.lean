import SchemaDiagram.Diagram
import SchemaDiagram.Json.Basic

/-!
# Schemas and diagrams in JSON

The fields of each object stand in a fixed order, and what is absent is written as null.
-/

namespace SchemaDiagram

namespace Json

def texts (l : List Text) : Json := .list (l.map .text)

def ofForeignKey (fk : ForeignKey) : Json :=
  record [("table", .text fk.table), ("column", .text fk.column)]

def ofColumn (c : Column) : Json :=
  record [
    ("name", .text c.name),
    ("type", .text c.type),
    ("isPrimaryKey", .bool c.isPrimaryKey),
    ("isUnique", .bool c.isUnique),
    ("isNotNull", .bool c.isNotNull),
    ("isAutoIncrement", .bool c.isAutoIncrement),
    ("defaultValue", ofOption .text c.defaultValue),
    ("checkExpression", ofOption .text c.checkExpression),
    ("foreignKey", ofOption ofForeignKey c.foreignKey)]

def ofConstraint : Constraint → Json
  | .primaryKey name columns =>
    record [("type", literal "PK"), ("name", ofOption .text name), ("columns", texts columns)]
  | .unique name columns =>
    record [("type", literal "UNIQUE"), ("name", ofOption .text name), ("columns", texts columns)]
  | .foreignKey name columns refTable refColumns onDelete onUpdate =>
    record [
      ("type", literal "FK"),
      ("name", ofOption .text name),
      ("columns", texts columns),
      ("refTable", .text refTable),
      ("refColumns", texts refColumns),
      ("onDelete", ofOption (.text ·.text) onDelete),
      ("onUpdate", ofOption (.text ·.text) onUpdate)]
  | .check name expression =>
    record [
      ("type", literal "CHECK"), ("name", ofOption .text name), ("expression", .text expression)]

def ofTable (t : Table) : Json :=
  record [
    ("name", .text t.name),
    ("schema", ofOption .text t.schema),
    ("columns", .list (t.columns.map ofColumn)),
    ("constraints", .list (t.constraints.map ofConstraint))]

def ofKind : RelationshipKind → Json
  | .manyToOne => literal "many-to-one"
  | .manyToMany => literal "many-to-many"

def ofEndpoint (e : Endpoint) : Json :=
  record [("table", .text e.table), ("columns", texts e.columns)]

def ofRelationship (r : Relationship) : Json :=
  record [
    ("name", .text r.name),
    ("from", ofEndpoint r.source),
    ("to", ofEndpoint r.target),
    ("type", ofKind r.kind)]

def schemaFields (s : Schema) : List (String × Json) := [
  ("tables", .list (s.tables.map ofTable)),
  ("relationships", .list (s.relationships.map ofRelationship))]

def ofSchema (s : Schema) : Json := record (schemaFields s)

def ofBox (b : Box Float) : Json :=
  record [
    ("x", .float b.x), ("y", .float b.y), ("width", .float b.width), ("height", .float b.height)]

def ofLayout (l : Layout Float) : Json :=
  record [
    ("positions", .object (l.boxes.entries.map fun (name, b) => (name, ofBox b))),
    ("layers", .list (l.layers.map texts)),
    ("width", .float l.width),
    ("height", .float l.height)]

def ofSide : Side → Json
  | .left => literal "left"
  | .right => literal "right"

def ofPoint (a : Anchor Float) : Json := .list [.float a.x, .float a.y]

def ofEdge (e : Edge Float) : Json :=
  record [
    ("relationship", .whole e.relationship),
    ("from", ofPoint e.source),
    ("fromSide", ofSide e.source.side),
    ("to", ofPoint e.target),
    ("toSide", ofSide e.target.side)]

def ofDiagram (d : Diagram Float) : Json :=
  record (schemaFields d.schema ++ [
    ("layout", ofLayout d.layout), ("edges", .list (d.edges.map ofEdge))])

end Json

end SchemaDiagram
