import SchemaDiagram.Text.Basic

/-!
# Relational schemas

Tables with their columns and constraints, and the relationships between tables. Names keep their
spelling; look-ups ignore the case of ASCII letters and find the first match.
-/

namespace SchemaDiagram

structure ForeignKey where
  table : Text
  column : Text
  deriving DecidableEq, Repr

structure Column where
  name : Text
  /-- Upper case, with its arguments and array suffixes; empty if none was recognised. -/
  type : Text := []
  isPrimaryKey : Bool := false
  isUnique : Bool := false
  isNotNull : Bool := false
  isAutoIncrement : Bool := false
  defaultValue : Option Text := none
  /-- The expression of a CHECK clause, parentheses included. -/
  checkExpression : Option Text := none
  foreignKey : Option ForeignKey := none
  deriving DecidableEq, Repr

/-- What happens to referencing rows when the referenced one goes away or changes. -/
inductive ReferentialAction where
  | cascade
  | restrict
  | setNull
  | setDefault
  | noAction
  deriving DecidableEq, Repr

def ReferentialAction.text : ReferentialAction → Text
  | cascade => Text.ofString "CASCADE"
  | restrict => Text.ofString "RESTRICT"
  | setNull => Text.ofString "SET NULL"
  | setDefault => Text.ofString "SET DEFAULT"
  | noAction => Text.ofString "NO ACTION"

/-- A constraint that stands for itself in a table body or an ALTER TABLE statement. -/
inductive Constraint where
  | primaryKey (name : Option Text) (columns : List Text)
  | unique (name : Option Text) (columns : List Text)
  | foreignKey (name : Option Text) (columns : List Text) (refTable : Text)
      (refColumns : List Text) (onDelete onUpdate : Option ReferentialAction)
  | check (name : Option Text) (expression : Text)
  deriving DecidableEq, Repr

def Constraint.name : Constraint → Option Text
  | primaryKey name _ => name
  | unique name _ => name
  | foreignKey name _ _ _ _ _ => name
  | check name _ => name

structure Table where
  name : Text
  schema : Option Text := none
  /-- In the order of declaration. -/
  columns : List Column := []
  constraints : List Constraint := []
  deriving DecidableEq, Repr

namespace Table

def column? (t : Table) (name : Text) : Option Column :=
  t.columns.find? (Text.SameName ·.name name)

def columnIndex? (t : Table) (name : Text) : Option Nat :=
  t.columns.findIdx? (Text.SameName ·.name name)

def updateColumns (t : Table) (names : List Text) (f : Column → Column) : Table :=
  { t with columns := t.columns.map fun c => if Text.isAmong c.name names then f c else c }

end Table

/-- The column meant by a reference that lists no columns. -/
def implicitColumn : Text := Text.ofString "id"

/-- The column that a foreign key shows when it refers to `columns`. -/
def referencedColumn (columns : List Text) : Text := columns.headD implicitColumn

/-- What a constraint says about the columns of its table. -/
def Table.mark (t : Table) : Constraint → Table
  | .primaryKey _ columns =>
    t.updateColumns columns fun c => { c with isPrimaryKey := true, isNotNull := true }
  | .unique _ columns => t.updateColumns columns fun c => { c with isUnique := true }
  | .foreignKey _ columns refTable refColumns _ _ =>
    t.updateColumns columns fun c =>
      { c with foreignKey := some ⟨refTable, referencedColumn refColumns⟩ }
  | .check _ _ => t

/-- The table with a further constraint recorded and its columns marked accordingly. -/
def Table.constrain (t : Table) (c : Constraint) : Table :=
  let t := t.mark c
  { t with constraints := t.constraints ++ [c] }

structure Endpoint where
  table : Text
  columns : List Text
  deriving DecidableEq, Repr

inductive RelationshipKind where
  | manyToOne
  | manyToMany
  deriving DecidableEq, Repr

/-- A reference over several columns counts as many-to-many. -/
def RelationshipKind.ofColumnCount (n : Nat) : RelationshipKind :=
  if 1 < n then manyToMany else manyToOne

structure Relationship where
  name : Text
  source : Endpoint
  target : Endpoint
  deriving DecidableEq, Repr

namespace Relationship

def kind (r : Relationship) : RelationshipKind :=
  .ofColumnCount r.source.columns.length

def isSelfReference (r : Relationship) : Bool :=
  Text.SameName r.source.table r.target.table

/-- Relationships of one key count as one: both ends in a single lower-case text. -/
def key (r : Relationship) : Text :=
  let listed (e : Endpoint) : Text := e.table ++ '.' :: Text.join [','] e.columns
  Text.lower (listed r.source ++ '-' :: '>' :: listed r.target)

end Relationship

def Constraint.relationship? (table : Text) : Constraint → Option Relationship
  | .foreignKey name columns refTable refColumns _ _ =>
    let ownName := Text.ofString "fk_" ++ table ++ '_' :: Text.join ['_'] columns
    some ⟨name.getD ownName, ⟨table, columns⟩, ⟨refTable, refColumns⟩⟩
  | _ => none

structure Schema where
  tables : List Table := []
  relationships : List Relationship := []
  deriving DecidableEq, Repr

namespace Schema

def isEmpty (s : Schema) : Bool := s.tables.isEmpty

def table? (s : Schema) (name : Text) : Option Table :=
  s.tables.find? (Text.SameName ·.name name)

end Schema

end SchemaDiagram
