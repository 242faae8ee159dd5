import SchemaDiagram.Sql.Clause
import SchemaDiagram.Sql.ColumnType

/-!
# Table bodies

The body of a table is a list of segments between commas: columns, constraints and index
definitions, in any mixture. Constraints apply to the finished columns, so a constraint may stand
before the columns it names. Index definitions say nothing about the schema.
-/

namespace SchemaDiagram.Sql

inductive SegmentKind where
  | column
  | constraint
  | index
  deriving DecidableEq, Repr

/-- The kind of a segment that begins with `token`, a constraint's name left out. -/
def SegmentKind.ofToken? : Option Token → SegmentKind
  | some (.keyword k _) =>
    if k ∈ [.primary, .foreign, .unique, .check] then .constraint
    else if k ∈ [.index, .key] then .index
    else .column
  | some (.name n) =>
    if Text.isAmong n [Text.ofString "FULLTEXT", Text.ofString "SPATIAL"] then .index else .column
  | _ => .column

def SegmentKind.ofText (segment : Text) : SegmentKind :=
  match (tokenize segment).map Lexeme.token with
  | .keyword .constraint _ :: tokens => ofToken? tokens[1]?
  | tokens => ofToken? tokens.head?

/-- The segments of a body, trimmed, blank ones left out. -/
def segments (body : Text) : List Text :=
  (splitTopLevel body |>.map Text.trim).filter (!·.isEmpty)

/-- The column that its name, its type and its clauses define. Of two defaults, checks or references
the last one counts. -/
def Clause.column (name : Text) (type : Option ColumnType) (clauses : List Clause) : Column :=
  let last? {α : Type} (f : Clause → Option α) : Option α := clauses.reverse.findSome? f
  let isPrimaryKey := clauses.contains .primaryKey
  let isAutoIncrement := type.any (·.isSerial) || clauses.contains .autoIncrement
  { name
    type := (type.map (·.name)).getD []
    isPrimaryKey
    isUnique := clauses.contains .unique
    isNotNull := clauses.contains .notNull || isPrimaryKey || isAutoIncrement
    isAutoIncrement
    defaultValue := last? fun | .default e => some e | _ => none
    checkExpression := last? fun | .check g => some g | _ => none
    foreignKey := last? fun
      | .references r => some ⟨r.table, referencedColumn r.columns⟩
      | _ => none }

def columnRelationship? (table : Text) (c : Column) : Option Relationship :=
  c.foreignKey.map fun fk =>
    ⟨Text.ofString "fk_" ++ table ++ '_' :: c.name, ⟨table, [c.name]⟩, ⟨fk.table, [fk.column]⟩⟩

/-- The column that a segment defines; none if the segment does not begin with a name. -/
def column? (segment : Text) : Option Column :=
  match Reader.name? segment with
  | (none, _) => none
  | (some name, rest) =>
    let type := columnType? rest
    some (Clause.column name type (Reader.clauses ((type.map (·.rest)).getD rest)))

/-- A table as its CREATE TABLE statement gives it, and the relationships declared inside. -/
structure CreatedTable where
  table : Table
  relationships : List Relationship
  deriving DecidableEq, Repr

/-- Reads the body of a table. Of two columns of one name the first one counts. -/
def CreatedTable.ofBody (name : Text) (schema : Option Text) (body : Text) : CreatedTable :=
  let ofKind (kind : SegmentKind) := (segments body).filter (SegmentKind.ofText · = kind)
  let columns := Text.firstOfEach (Text.lower ·.name) ((ofKind .column).filterMap column?)
  let constraints := (ofKind .constraint).filterMap fun s => (Reader.tableConstraint? s).1
  { table := constraints.foldl Table.constrain { name, schema, columns }
    relationships :=
      columns.filterMap (columnRelationship? name) ++
        constraints.filterMap (Constraint.relationship? name) }

end SchemaDiagram.Sql
